import UT612.Library.Transducer

/-!
# Greedy segmentation

A predicate `stop` on lists cuts an input into segments: a segment is a list that stops and has no
proper prefix that does, and what is left over has no prefix that stops. An input has one
segmentation at most, and the machine that collects symbols until it has to stop computes it.
-/

namespace Segmentation

variable {α : Type*} (stop : List α → Prop)

/-- A list that stops, and not before its end. -/
structure IsSegment (s : List α) : Prop where
  stops : stop s
  minimal : ∀ p, p <+: s → p ≠ s → ¬ stop p

/-- A list in which nothing has stopped yet. -/
def Unfinished (t : List α) : Prop := ∀ p, p <+: t → ¬ stop p

/-- `xs` cut into segments, with a rest in which nothing stops. -/
structure IsSegmentation (xs : List α) (segments : List (List α)) (rest : List α) : Prop where
  join : segments.flatten ++ rest = xs
  segment : ∀ s ∈ segments, IsSegment stop s
  unfinished : Unfinished stop rest

variable {stop}

/-- Two segments at the start of one list are the same. -/
theorem IsSegment.eq_of_prefix {s s' xs : List α} (hs : IsSegment stop s) (hs' : IsSegment stop s')
    (h : s <+: xs) (h' : s' <+: xs) : s = s' := by
  by_contra hne
  rcases List.prefix_or_prefix_of_prefix h h' with hss | hss
  · exact hs'.minimal s hss hne hs.stops
  · exact hs.minimal s' hss (Ne.symm hne) hs'.stops

/-- **An input has one segmentation at most.** -/
theorem IsSegmentation.unique {xs : List α} {segments segments' : List (List α)}
    {rest rest' : List α} (h : IsSegmentation stop xs segments rest)
    (h' : IsSegmentation stop xs segments' rest') : segments = segments' ∧ rest = rest' := by
  induction segments generalizing xs segments' with
  | nil =>
      obtain ⟨rfl, -, hrest⟩ := h
      cases segments' with
      | nil => exact ⟨rfl, by simpa using h'.join.symm⟩
      | cons s' segments' =>
          have hprefix : s' <+: rest := ⟨segments'.flatten ++ rest', by simpa using h'.join⟩
          exact absurd (h'.segment s' (by simp)).stops (hrest s' hprefix)
  | cons s segments ih =>
      have hs := h.segment s (by simp)
      have hprefix : s <+: xs := ⟨segments.flatten ++ rest, by simpa using h.join⟩
      cases segments' with
      | nil =>
          obtain ⟨rfl, -, hrest'⟩ := h'
          exact absurd hs.stops (hrest' s hprefix)
      | cons s' segments' =>
          have hprefix' : s' <+: xs := ⟨segments'.flatten ++ rest', by simpa using h'.join⟩
          obtain rfl := hs.eq_of_prefix (h'.segment s' (by simp)) hprefix hprefix'
          have hjoin : segments.flatten ++ rest = segments'.flatten ++ rest' := by
            have := h.join.trans h'.join.symm
            simpa using this
          have htail : IsSegmentation stop (segments.flatten ++ rest) segments rest :=
            ⟨rfl, fun t ht => h.segment t (by simp [ht]), h.unfinished⟩
          have htail' : IsSegmentation stop (segments.flatten ++ rest) segments' rest' :=
            ⟨hjoin.symm, fun t ht => h'.segment t (by simp [ht]), h'.unfinished⟩
          obtain ⟨rfl, rfl⟩ := ih htail htail'
          exact ⟨rfl, rfl⟩

/-! ### The machine -/

variable (stop) [DecidablePred stop]

/-- Collect symbols until they stop, give them out, and start afresh. -/
def segmenter : Transducer (List α) α (List α) where
  step pending x :=
    if stop (pending ++ [x]) then ([], some (pending ++ [x])) else (pending ++ [x], none)

variable {stop}

theorem step_of_stop {pending : List α} {x : α} (h : stop (pending ++ [x])) :
    (segmenter stop).step pending x = ([], some (pending ++ [x])) := if_pos h

theorem step_of_not_stop {pending : List α} {x : α} (h : ¬ stop (pending ++ [x])) :
    (segmenter stop).step pending x = (pending ++ [x], none) := if_neg h

/-- While nothing stops, symbols only pile up. -/
theorem run_of_quiet {pending xs : List α}
    (h : ∀ p, p <+: xs → p ≠ [] → ¬ stop (pending ++ p)) :
    (segmenter stop).trace pending xs = List.replicate xs.length none ∧
      (segmenter stop).finish pending xs = pending ++ xs := by
  induction xs generalizing pending with
  | nil => simp
  | cons x xs ih =>
      have hx : ¬ stop (pending ++ [x]) := h [x] ⟨xs, rfl⟩ (by simp)
      have hxs : ∀ p, p <+: xs → p ≠ [] → ¬ stop (pending ++ [x] ++ p) := by
        intro p hp _
        simpa using h (x :: p) (by simpa using hp) (by simp)
      obtain ⟨htrace, hfinish⟩ := ih hxs
      simp [step_of_not_stop hx, htrace, hfinish, List.replicate_succ]

/-- Symbols that stop for the first time at their end are given out there. -/
theorem run_of_first_stop {pending xs : List α} (hne : xs ≠ [])
    (hquiet : ∀ p, p <+: xs → p ≠ [] → p ≠ xs → ¬ stop (pending ++ p))
    (hstop : stop (pending ++ xs)) :
    (segmenter stop).trace pending xs =
        List.replicate (xs.length - 1) none ++ [some (pending ++ xs)] ∧
      (segmenter stop).finish pending xs = [] := by
  obtain ⟨ys, y, rfl⟩ := (List.eq_nil_or_concat' xs).resolve_left hne
  have hys : ∀ p, p <+: ys → p ≠ [] → ¬ stop (pending ++ p) := by
    intro p hp hpne
    refine hquiet p (hp.trans (List.prefix_append ys [y])) hpne fun heq => ?_
    have hlength := hp.length_le
    rw [heq, List.length_append, List.length_singleton] at hlength
    omega
  obtain ⟨htrace, hfinish⟩ := run_of_quiet hys
  rw [Transducer.trace_append, Transducer.finish_append, htrace, hfinish]
  rw [← List.append_assoc] at hstop
  simp [step_of_stop hstop]

/-- A list of segments is given out as it is, each segment at its end. -/
theorem run_of_segments {segments : List (List α)} (hnil : ¬ stop [])
    (h : ∀ s ∈ segments, IsSegment stop s) :
    (segmenter stop).trace [] segments.flatten =
        segments.flatMap (fun s => List.replicate (s.length - 1) none ++ [some s]) ∧
      (segmenter stop).finish [] segments.flatten = [] := by
  induction segments with
  | nil => exact ⟨rfl, rfl⟩
  | cons s segments ih =>
      have hs := h s (by simp)
      have hne : s ≠ [] := fun heq => hnil (heq ▸ hs.stops)
      have hstop : stop ([] ++ s) := hs.stops
      obtain ⟨htrace, hfinish⟩ :=
        run_of_first_stop hne (fun p hp _ hpne => hs.minimal p hp hpne) hstop
      obtain ⟨htrace', hfinish'⟩ := ih fun t ht => h t (by simp [ht])
      rw [List.flatten_cons, Transducer.trace_append, Transducer.finish_append, hfinish, htrace',
        hfinish', htrace, List.flatMap_cons, List.nil_append]
      exact ⟨rfl, rfl⟩

/-- A pending input in which nothing has stopped stays one. -/
theorem step_unfinished {pending : List α} {x : α} (hnil : ¬ stop [])
    (h : Unfinished stop pending) : Unfinished stop ((segmenter stop).step pending x).1 := by
  by_cases hx : stop (pending ++ [x])
  · rw [step_of_stop hx]
    intro p hp
    rwa [List.prefix_nil.mp hp]
  · rw [step_of_not_stop hx]
    intro p hp
    rcases List.prefix_concat_iff.mp hp with rfl | hp
    · exact hx
    · exact h p hp

/-- What has been given out and what is pending make up the input. -/
theorem flatten_outputs_append_finish (pending xs : List α) :
    ((segmenter stop).outputs pending xs).flatten ++ (segmenter stop).finish pending xs =
      pending ++ xs := by
  induction xs generalizing pending with
  | nil => simp
  | cons x xs ih =>
      rw [Transducer.outputs_cons, Transducer.finish_cons]
      by_cases hx : stop (pending ++ [x])
      · simp [step_of_stop hx, ih]
      · simp [step_of_not_stop hx, ih]

theorem isSegment_of_mem_outputs {pending xs : List α} (hnil : ¬ stop [])
    (h : Unfinished stop pending) {s : List α} (hs : s ∈ (segmenter stop).outputs pending xs) :
    IsSegment stop s := by
  induction xs generalizing pending with
  | nil => simp at hs
  | cons x xs ih =>
      rw [Transducer.outputs_cons, List.mem_append] at hs
      rcases hs with hs | hs
      · by_cases hx : stop (pending ++ [x])
        · simp only [step_of_stop hx, Option.toList_some, List.mem_singleton] at hs
          subst hs
          refine ⟨hx, fun p hp hne => ?_⟩
          exact h p ((List.prefix_concat_iff.mp hp).resolve_left hne)
        · simp [step_of_not_stop hx] at hs
      · exact ih (step_unfinished hnil h) hs

/-- **The machine computes the segmentation of its input.** -/
theorem isSegmentation_run (hnil : ¬ stop []) (xs : List α) :
    IsSegmentation stop xs ((segmenter stop).outputs [] xs) ((segmenter stop).finish [] xs) := by
  have hstart : Unfinished stop [] := fun p hp => by rwa [List.prefix_nil.mp hp]
  refine ⟨by simpa using flatten_outputs_append_finish [] xs, ?_, ?_⟩
  · exact fun s hs => isSegment_of_mem_outputs hnil hstart hs
  · exact (segmenter stop).finish_induction (fun _ _ => step_unfinished hnil) hstart xs

theorem stop_of_mem_outputs {pending xs s : List α} (hs : s ∈ (segmenter stop).outputs pending xs) :
    stop s := by
  induction xs generalizing pending with
  | nil => exact absurd hs List.not_mem_nil
  | cons x xs ih =>
      rw [Transducer.outputs_cons, List.mem_append] at hs
      rcases hs with hs | hs
      · by_cases hx : stop (pending ++ [x])
        · rw [step_of_stop hx, Option.toList_some, List.mem_singleton] at hs
          exact hs ▸ hx
        · rw [step_of_not_stop hx] at hs
          exact absurd hs List.not_mem_nil
      · exact ih hs

/-- Without an output the whole input is pending. -/
theorem finish_of_outputs_eq_nil {pending xs : List α}
    (h : (segmenter stop).outputs pending xs = []) :
    (segmenter stop).finish pending xs = pending ++ xs := by
  have hjoin := @flatten_outputs_append_finish _ stop _ pending xs
  rwa [h, List.flatten_nil, List.nil_append] at hjoin

/-- After an output less than the input is pending. -/
theorem length_finish_lt {pending xs : List α} (h : (segmenter stop).outputs pending xs ≠ []) :
    ((segmenter stop).finish pending xs).length < xs.length := by
  induction xs generalizing pending with
  | nil => exact absurd rfl h
  | cons x xs ih =>
      rw [Transducer.outputs_cons] at h
      rw [Transducer.finish_cons, List.length_cons]
      by_cases hx : stop (pending ++ [x])
      · rw [step_of_stop hx]
        by_cases hrest : (segmenter stop).outputs [] xs = []
        · rw [finish_of_outputs_eq_nil hrest, List.nil_append]
          exact Nat.lt_succ_self _
        · exact Nat.lt_succ_of_lt (ih hrest)
      · rw [step_of_not_stop hx] at h ⊢
        exact Nat.lt_succ_of_lt (ih h)

/-- What is pending is the end of the input. -/
theorem finish_suffix (pending xs : List α) :
    (segmenter stop).finish pending xs <:+ pending ++ xs :=
  ⟨_, flatten_outputs_append_finish pending xs⟩

/-- What is given out at a symbol ends the input up to that symbol, and stops. -/
theorem suffix_of_getElem?_trace {xs s : List α} {i : Nat}
    (h : ((segmenter stop).trace [] xs)[i]? = some (some s)) :
    s <:+ xs.take (i + 1) ∧ stop s := by
  rw [Transducer.getElem?_trace] at h
  obtain ⟨x, hx, hstep⟩ := Option.map_eq_some_iff.mp h
  have hpending : (segmenter stop).finish [] (xs.take i) <:+ xs.take i := finish_suffix [] (xs.take i)
  by_cases hstop : stop ((segmenter stop).finish [] (xs.take i) ++ [x])
  · rw [step_of_stop hstop] at hstep
    obtain rfl : (segmenter stop).finish [] (xs.take i) ++ [x] = s := by simpa using hstep
    refine ⟨?_, hstop⟩
    obtain ⟨before, hbefore⟩ := hpending
    refine ⟨before, ?_⟩
    rw [List.take_add_one, hx, Option.toList_some, ← List.append_assoc, hbefore]
  · simp [step_of_not_stop hstop] at hstep

/-! ### More on the left -/

/-- A list that stops still does so with more symbols before it. -/
def LeftClosed (stop : List α → Prop) : Prop := ∀ s t, s <:+ t → stop s → stop t

/-- Of two machines one has less pending than the other. It gives out as much on a common input, or
one segment less. -/
theorem length_outputs_of_suffix (hleft : LeftClosed stop) {less more : List α} (h : less <:+ more)
    (xs : List α) :
    ((segmenter stop).outputs less xs).length ≤ ((segmenter stop).outputs more xs).length ∧
      ((segmenter stop).outputs more xs).length ≤
        ((segmenter stop).outputs less xs).length + 1 := by
  induction xs generalizing less more with
  | nil => exact ⟨Nat.le_refl 0, Nat.le_succ 0⟩
  | cons x xs ih =>
      have hx : less ++ [x] <:+ more ++ [x] := List.suffix_append_self_iff.mpr h
      rw [Transducer.outputs_cons, Transducer.outputs_cons, List.length_append, List.length_append]
      by_cases hmore : stop (more ++ [x])
      · by_cases hless : stop (less ++ [x])
        · -- both start afresh
          rw [step_of_stop hmore, step_of_stop hless]
          simp
        · -- the machine with more stops, and has less from then on
          rw [step_of_stop hmore, step_of_not_stop hless]
          obtain ⟨hle, hlt⟩ := ih (List.nil_suffix (l := less ++ [x]))
          simp only [Option.toList_some, Option.toList_none, List.length_singleton, List.length_nil]
          omega
      · have hless : ¬ stop (less ++ [x]) := fun hstop => hmore (hleft _ _ hx hstop)
        rw [step_of_not_stop hmore, step_of_not_stop hless]
        obtain ⟨hle, hlt⟩ := ih hx
        simp only [Option.toList_none, List.length_nil]
        omega

/-- **Robustness.** Whatever two machines have pending, on a common input one gives out at most one
segment more than the other. -/
theorem length_outputs_le (hleft : LeftClosed stop) (pending pending' xs : List α) :
    ((segmenter stop).outputs pending xs).length ≤
      ((segmenter stop).outputs pending' xs).length + 1 := by
  induction xs generalizing pending pending' with
  | nil => exact Nat.zero_le _
  | cons x xs ih =>
      rw [Transducer.outputs_cons, Transducer.outputs_cons, List.length_append, List.length_append]
      by_cases hstop : stop (pending ++ [x])
      · rw [step_of_stop hstop]
        by_cases hstop' : stop (pending' ++ [x])
        · rw [step_of_stop hstop']
          simp
        · rw [step_of_not_stop hstop']
          have hle := (length_outputs_of_suffix hleft (List.nil_suffix (l := pending' ++ [x])) xs).1
          simp only [Option.toList_some, Option.toList_none, List.length_singleton, List.length_nil]
          omega
      · rw [step_of_not_stop hstop]
        by_cases hstop' : stop (pending' ++ [x])
        · rw [step_of_stop hstop']
          have hle := (length_outputs_of_suffix hleft (List.nil_suffix (l := pending ++ [x])) xs).2
          simp only [Option.toList_some, Option.toList_none, List.length_singleton, List.length_nil]
          omega
        · rw [step_of_not_stop hstop']
          have hle := ih (pending ++ [x]) (pending' ++ [x])
          simp only [Option.toList_none, List.length_nil]
          omega

/-- At the end of a list that stops something has been given out. -/
theorem outputs_ne_nil_of_stop (hleft : LeftClosed stop) (hnil : ¬ stop []) {s : List α}
    (hs : stop s) (pending : List α) : (segmenter stop).outputs pending s ≠ [] := by
  obtain ⟨front, x, rfl⟩ := (List.eq_nil_or_concat' s).resolve_left fun heq => hnil (heq ▸ hs)
  intro houtputs
  rw [Transducer.outputs_append, List.append_eq_nil_iff] at houtputs
  obtain ⟨hfront, hlast⟩ := houtputs
  rw [finish_of_outputs_eq_nil hfront] at hlast
  have hstop : stop (pending ++ front ++ [x]) := by
    rw [List.append_assoc]
    exact hleft _ _ (List.suffix_append _ _) hs
  rw [Transducer.outputs_cons, step_of_stop hstop] at hlast
  exact nomatch hlast

/-- **Optimality.** The machine gives out at least as many segments as there are in any division of
its input into lists that stop and a rest. -/
theorem length_le_length_outputs (hleft : LeftClosed stop) (hnil : ¬ stop [])
    {pieces : List (List α)} (hpieces : ∀ s ∈ pieces, stop s) (rest pending : List α) :
    pieces.length ≤ ((segmenter stop).outputs pending (pieces.flatten ++ rest)).length := by
  induction pieces generalizing pending with
  | nil => exact Nat.zero_le _
  | cons s pieces ih =>
      obtain ⟨hs, hpieces⟩ := List.forall_mem_cons.mp hpieces
      have hpos := List.length_pos_of_ne_nil (outputs_ne_nil_of_stop hleft hnil hs pending)
      have hrest := ih hpieces ((segmenter stop).finish pending s)
      rw [List.flatten_cons, List.append_assoc, Transducer.outputs_append, List.length_append,
        List.length_cons]
      omega

end Segmentation
