import UT612.Proof.Parser.Stream

/-!
# Recovery

How many frames a reader loses that joins a stream in the middle of a frame. It has no way back from
a false delimiter but the 17 bytes it waits for after each cut, so it stays wrong for as long as
each frame has a delimiter at or after the place of the one before.
-/

namespace UT612

open Segmentation Delimited

/-- At the byte at place `i` of an input the window `w` is cut, and its line is printed with its
row. -/
def PrintsRowAt (clock : Clock) (p : UT612ByteStreamParser) (con : Console) (bytes : List UInt8)
    (i : Nat) (w : Window) : Prop :=
  ∃ p₁ con₁ byte p₂ con₂ values,
    processBytes clock.now (bytes.take i) p con = .ok (p₁, con₁) ∧
    bytes[i]? = some byte ∧
    processByte clock.now byte p₁ con₁ = .ok (p₂, con₂) ∧
    (framer.step p₁ byte).2.map Cut.window = some w ∧
    w.row = .ok values ∧
    con₂.cout = con₁.cout ++ Nat.toDigits 10 p₁.frameCount.toNat ++ "\t".toList ++
      stamp clock p₁.doTimestamp con₁.clockReads ++ values ++ "\n".toList

theorem number_of_step {p : UT612ByteStreamParser} {byte : UInt8} {c : Cut}
    (h : (framer.step p byte).2 = some c) : c.number = p.frameCount := by
  by_cases hend : EndsFrame p byte
  · rw [framer_step_of_endsFrame hend] at h
    obtain rfl := Option.some.inj h
    rfl
  · rw [framer_step_of_not_endsFrame hend] at h
    exact nomatch h

/-- A window that has a row is printed where it is cut. -/
theorem printsRowAt_iff (clock : Clock) (p : UT612ByteStreamParser) (con : Console)
    (bytes : List UInt8) (i : Nat) {w : Window} (hw : ∃ values, w.row = .ok values) :
    PrintsRowAt clock p con bytes i w ↔
      (framer.trace p bytes)[i]?.map (Option.map Cut.window) = some (some w) := by
  rw [Transducer.getElem?_trace, Option.map_map]
  constructor
  · intro h
    obtain ⟨p₁, con₁, byte, p₂, con₂, values, hrun, hbyte, -, hcut, -⟩ := h
    rw [processBytes_eq] at hrun
    obtain ⟨rfl, -⟩ := Prod.mk.inj (Except.ok.inj hrun)
    rw [hbyte, Option.map_some, Function.comp_apply, hcut]
  · intro h
    obtain ⟨byte, hbyte, hcut⟩ := Option.map_eq_some_iff.mp h
    rw [Function.comp_apply] at hcut
    obtain ⟨c, hc, rfl⟩ := Option.map_eq_some_iff.mp hcut
    obtain ⟨values, hvalues⟩ := hw
    refine ⟨_, _, byte, _, _, values, processBytes_eq clock _ p con, hbyte,
      processByte_eq clock byte _ _, hcut, hvalues, ?_⟩
    rw [hc, Option.toList_some, List.foldl_cons, List.foldl_nil, Console.emit, number_of_step hc,
      frameLine, Window.values, hvalues]
    simp only [List.append_assoc]

/-- The reader joins inside a frame, and the next two frames have delimiters before their ends: the
first at the place of joining or after it, the second at the place of the first or after it. -/
def FalseLock (frames : List Window) (k : Nat) : Prop :=
  0 < k ∧ ∃ f f' e e', frames[1]? = some f ∧ frames[2]? = some f' ∧
    k ≤ e ∧ e ≤ e' ∧ e' < frameSize ∧
    [0x0d, 0x0a] <:+ f.bytes.take e ∧ [0x0d, 0x0a] <:+ f'.bytes.take e'

section Inside

variable {first f : Window} {fs : List Window} {k j : Nat}

/-- After joining inside a frame, a later frame is cut at its last byte if that is where the phase
has come to. -/
theorem cut_at_end_iff {p : UT612ByteStreamParser} (h : Tracks p [])
    (hframes : ∀ g ∈ first :: fs, g.Terminated) (hpos : 0 < k) (hk : k ≤ frameSize)
    (hf : fs[j]? = some f) :
    (framer.trace p (joined (first :: fs) k))[frameSize * (j + 2) - k - 1]?.map
        (Option.map Cut.window) = some (some f) ↔
      phase 0x0d 0x0a k ((fs.take (j + 1)).map Window.bytes) = frameSize := by
  obtain ⟨before, -, hcut⟩ := h.cut_of_pos hframes hpos hk (r := 16) (by decide) hf
  have hplace : frameSize * (j + 2) - k - 1 = frameSize - k + (frameSize * j + 16) := by
    simp only [frameSize] at hk ⊢
    omega
  have hphase : phase 0x0d 0x0a k ((fs.take (j + 1)).map Window.bytes) =
      nextEnd 0x0d 0x0a f.bytes (phase 0x0d 0x0a k ((fs.take j).map Window.bytes)) := by
    rw [List.take_add_one, hf, Option.toList_some, List.map_append, phase_append]
    rfl
  rw [hplace, hcut, hphase]
  by_cases hend : 16 + 1 = nextEnd 0x0d 0x0a f.bytes
      (phase 0x0d 0x0a k ((fs.take j).map Window.bytes))
  · rw [if_pos hend, straddle_of_eq _ rfl]
    exact iff_of_true rfl hend.symm
  · rw [if_neg hend]
    exact iff_of_false (fun h => nomatch h) fun h => hend h.symm

theorem falseLock_iff {f' : Window} {rest : List Window} (hpos : 0 < k) :
    FalseLock (first :: f :: f' :: rest) k ↔
      ∃ e e', k ≤ e ∧ e ≤ e' ∧ e' < frameSize ∧
        [0x0d, 0x0a] <:+ f.bytes.take e ∧ [0x0d, 0x0a] <:+ f'.bytes.take e' := by
  constructor
  · intro h
    obtain ⟨-, _, _, e, e', hf, hf', hends⟩ := h
    obtain rfl := Option.some.inj hf
    obtain rfl := Option.some.inj hf'
    exact ⟨e, e', hends⟩
  · intro h
    obtain ⟨e, e', hends⟩ := h
    exact ⟨hpos, f, f', e, e', rfl, rfl, hends⟩

/-- Without a third frame there is no false lock. -/
theorem not_falseLock {frames : List Window} (h : frames.length ≤ 2) : ¬ FalseLock frames k := by
  intro hlock
  obtain ⟨-, _, _, _, _, -, hf', -⟩ := hlock
  rw [List.getElem?_eq_none h] at hf'
  exact nomatch hf'

/-- Two frames after joining, the phase is at the end of the frames, unless a false lock holds it
back; from then on it stays there. -/
theorem phases_iff_not_falseLock (hframes : ∀ g ∈ first :: fs, g.Terminated) (hpos : 0 < k)
    (hk : k ≤ frameSize) :
    (∀ j, 1 ≤ j → j < fs.length →
      phase 0x0d 0x0a k ((fs.take (j + 1)).map Window.bytes) = frameSize) ↔
    ¬ FalseLock (first :: fs) k := by
  match fs with
  | [] => exact iff_of_true (fun j _ hlt => absurd hlt j.not_lt_zero) (not_falseLock one_le_two)
  | [_] =>
      exact iff_of_true (fun j hj hlt => absurd hj (Nat.not_le.mpr hlt)) (not_falseLock le_rfl)
  | f :: f' :: rest =>
      have hword := (hframes f (by simp)).isWord
      have hword' := (hframes f' (by simp)).isWord
      rw [falseLock_iff hpos, ← phase_pair_eq_iff hword hword' hk]
      constructor
      · exact fun h => h 1 le_rfl (by simp)
      · intro hpair j hj _
        obtain ⟨i, rfl⟩ := Nat.exists_eq_add_of_le' hj
        have hwords : ∀ g ∈ (rest.take i).map Window.bytes, IsWord frameSize 0x0d 0x0a g := by
          intro g hg
          obtain ⟨w, hw, rfl⟩ := List.mem_map.mp hg
          exact (hframes w (by simp [List.mem_of_mem_take hw])).isWord
        calc phase 0x0d 0x0a k (((f :: f' :: rest).take (i + 1 + 1)).map Window.bytes)
            = phase 0x0d 0x0a k ([f.bytes, f'.bytes] ++ (rest.take i).map Window.bytes) := rfl
          _ = frameSize := by rw [phase_append, hpair, phase_self hwords]

end Inside

section Joined

variable (clock : Clock) (doTimestamp : Bool) (con : Console) {frames fs : List Window}
  {first f : Window} {k j : Nat}

theorem printsRowAt_joined_zero (hframes : ∀ g ∈ frames, g.Accepted) (hf : frames[j]? = some f) :
    PrintsRowAt clock (freshParser doTimestamp) con (joined frames 0)
      (frameSize * (j + 1) - 0 - 1) f := by
  have hterm : ∀ g ∈ frames, g.Terminated := fun g hg => (hframes g hg).terminated
  have hcut := (tracks_freshParser doTimestamp).cut_at_end_of_zero hterm (r := 16) (by decide) hf
  have hplace : frameSize * (j + 1) - 0 - 1 = frameSize * j + 16 := by
    simp only [frameSize]
    omega
  rw [printsRowAt_iff clock _ con _ _ (hframes f (List.mem_of_getElem? hf)).row, hplace, hcut]
  rfl

theorem printsRowAt_joined_iff (hframes : ∀ g ∈ first :: fs, g.Accepted) (hpos : 0 < k)
    (hk : k ≤ frameSize) (hf : fs[j]? = some f) :
    PrintsRowAt clock (freshParser doTimestamp) con (joined (first :: fs) k)
        (frameSize * (j + 2) - k - 1) f ↔
      phase 0x0d 0x0a k ((fs.take (j + 1)).map Window.bytes) = frameSize := by
  have hterm : ∀ g ∈ first :: fs, g.Terminated := fun g hg => (hframes g hg).terminated
  have haccepted := hframes f (List.mem_cons_of_mem first (List.mem_of_getElem? hf))
  rw [printsRowAt_iff clock _ con _ _ haccepted.row]
  exact cut_at_end_iff (tracks_freshParser doTimestamp) hterm hpos hk hf

end Joined

/-- **Recovery.** A reader that joins a stream of accepted frames loses at most two of them, exactly
if the second and the third do not hold it in a false lock. -/
theorem recovery_iff (clock : Clock) (doTimestamp : Bool) (con : Console) (frames : List Window)
    (hframes : ∀ f ∈ frames, f.Accepted) (k : Nat) (hk : k ≤ frameSize) :
    (∀ j f, 2 ≤ j → frames[j]? = some f →
      PrintsRowAt clock (freshParser doTimestamp) con (joined frames k)
        (frameSize * (j + 1) - k - 1) f) ↔
    ¬ FalseLock frames k := by
  rcases Nat.eq_zero_or_pos k with rfl | hpos
  · apply iff_of_true _ fun hlock => absurd hlock.1 (lt_irrefl 0)
    exact fun j f _ hf => printsRowAt_joined_zero clock doTimestamp con hframes hf
  · cases frames with
    | nil => exact iff_of_true (fun j f _ hf => nomatch hf) (not_falseLock (Nat.zero_le 2))
    | cons first fs =>
        rw [← phases_iff_not_falseLock (fun f hf => (hframes f hf).terminated) hpos hk]
        constructor
        · intro h j hj hlt
          have hf : fs[j]? = some fs[j] := List.getElem?_eq_getElem hlt
          exact (printsRowAt_joined_iff clock doTimestamp con hframes hpos hk hf).mp
            (h (j + 1) fs[j] (by omega) hf)
        · intro h j f hj hf
          obtain ⟨i, rfl⟩ := Nat.exists_eq_add_of_le' hj
          rw [List.getElem?_cons_succ] at hf
          exact (printsRowAt_joined_iff clock doTimestamp con hframes hpos hk hf).mpr
            (h (i + 1) (by omega) (List.getElem?_eq_some_iff.mp hf).1)

theorem recovery_iff_phase :
    PrintsRowAt Clock.stopped (freshParser true) .empty
      (joined [phaseFrame, phaseFrame, phaseFrame] 5) 45 phaseFrame := by
  have hframes : ∀ f ∈ [phaseFrame, phaseFrame, phaseFrame], f.Accepted := by
    intro f hf
    simp only [List.mem_cons, List.not_mem_nil, or_false, or_self] at hf
    exact hf ▸ accepted_phaseFrame
  have hlock : ¬ FalseLock [phaseFrame, phaseFrame, phaseFrame] 5 := by
    intro h
    obtain ⟨-, _, f', e, e', -, hf', -, -, hlt, -, hends⟩ := h
    obtain rfl := Option.some.inj hf'
    exact unbroken_phaseFrame.no_early_end e' hlt hends
  exact (recovery_iff Clock.stopped true .empty _ hframes 5 (by decide)).mpr hlock 2 phaseFrame
    le_rfl rfl

/-- Not every reader recovers after two frames. -/
theorem exists_not_recovered :
    ¬ ∀ (clock : Clock) (doTimestamp : Bool) (con : Console) (frames : List Window),
      (∀ f ∈ frames, f.Accepted) → ∀ k, k ≤ frameSize → ∀ j f, 2 ≤ j → frames[j]? = some f →
        PrintsRowAt clock (freshParser doTimestamp) con (joined frames k)
          (frameSize * (j + 1) - k - 1) f := by
  intro h
  have hframes : ∀ f ∈ [delimiterFrame, delimiterFrame, delimiterFrame], f.Accepted := by
    intro f hf
    simp only [List.mem_cons, List.not_mem_nil, or_false, or_self] at hf
    exact hf ▸ accepted_delimiterFrame
  have hprints := h Clock.stopped true .empty _ hframes 1 (by decide) 2 delimiterFrame le_rfl rfl
  rw [printsRowAt_iff _ _ _ _ _ accepted_delimiterFrame.row] at hprints
  revert hprints
  decide +kernel

end UT612
